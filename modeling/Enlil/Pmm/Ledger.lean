import Enlil.Pmm.BuddyRuns

/-! The holders of pages as a ledger: how many references to each page are out. -/

namespace Enlil.Pmm

open AlignedBlock

/-- A page that the allocator hands out: managed, and not reserved at the start. -/
def Pooled (reserved : Nat → Bool) (page : Nat) : Prop := page < numPages ∧ reserved page = false

instance (reserved : Nat → Bool) (page : Nat) : Decidable (Pooled reserved page) := inferInstanceAs (Decidable (_ ∧ _))

/-- The holders of a ledger. -/
def holders (reserved : Nat → Bool) (count : Nat → Nat) : Nat → Holder := fun page =>
  if Pooled reserved page then
    if count page = 0 then .pool else .client (count page)
  else .reserved

/-- The allocator's data agrees with a ledger. -/
def Ledger (reserved : Nat → Bool) (count : Nat → Nat) (s : Buddy) : Prop :=
  Sound (holders reserved count) (fun _ => False) s

/-- One reference to the page of an address. -/
def refOf (pa : Nat) : Nat → Nat := fun page => if unmanaged pa = false ∧ pageOf pa = page then 1 else 0

/-- One reference to each page of a run of pages. -/
def refsOf (pa : Nat) : Nat → Nat → Nat
  | 0 => fun _ => 0
  | count + 1 => fun page => refOf pa page + refsOf (pa + pageSize) count page

section

variable {reserved : Nat → Bool} {count count' : Nat → Nat} {s s' : Buddy} {pa page : Nat}

theorem holders_pool (pooled : Pooled reserved page) : holders reserved count page = .pool ↔ count page = 0 := by
  unfold holders
  rw [if_pos pooled]
  split <;> simp_all

theorem holders_client (pooled : Pooled reserved page) (some : count page ≠ 0) :
    holders reserved count page = .client (count page) := by
  rw [holders, if_pos pooled, if_neg some]

theorem holders_reserved (other : ¬ Pooled reserved page) : holders reserved count page = .reserved := by
  rw [holders, if_neg other]

theorem holders_at (same : Pooled reserved page → count page = count' page) :
    holders reserved count page = holders reserved count' page := by
  unfold holders
  split
  · rename_i pooled
    rw [same pooled]
  · rfl

theorem holders_congr (same : ∀ page, Pooled reserved page → count page = count' page) :
    holders reserved count = holders reserved count' :=
  funext fun page => holders_at (same page)

theorem Ledger.congr (ledger : Ledger reserved count s) (same : ∀ page, Pooled reserved page → count page = count' page) :
    Ledger reserved count' s := by
  unfold Ledger
  rw [← holders_congr same]
  exact ledger

theorem Ledger.refs (ledger : Ledger reserved count s) (pooled : Pooled reserved page) (some : count page ≠ 0) :
    (s.pageRefs page).toNat = count page :=
  (ledger.clientTag (holders_client pooled some)).2.2

theorem Ledger.unlisted (ledger : Ledger reserved count s) {order idx : Nat} (free : s.FreeBlock order idx)
    (covers : Covers idx order page) : Pooled reserved page ∧ count page = 0 := by
  have pool := (ledger.pool_of_free free covers).1
  by_cases pooled : Pooled reserved page
  · exact ⟨pooled, (holders_pool pooled).mp pool⟩
  · rw [holders_reserved pooled] at pool
    cases pool

theorem pooled_of_pool (pool : holders reserved count page = .pool) : Pooled reserved page ∧ count page = 0 := by
  by_cases pooled : Pooled reserved page
  · exact ⟨pooled, (holders_pool pooled).mp pool⟩
  · rw [holders_reserved pooled] at pool
    cases pool

theorem refOf_self (managed : unmanaged pa = false) : refOf pa (pageOf pa) = 1 := if_pos ⟨managed, rfl⟩

theorem refOf_other (apart : pageOf pa ≠ page) : refOf pa page = 0 := if_neg fun both => apart both.2

theorem refOf_unmanaged (outside : unmanaged pa = true) : refOf pa page = 0 := by
  simp [refOf, outside]

theorem pageOf_idxToPa (idx : Nat) : pageOf (idxToPa idx) = idx := by
  simp only [pageOf, paToIdx, pageMask, idxToPa, pmmBase, pageSize]
  omega

theorem refsOf_eq {idx : Nat} (n : Nat) (inside : idx + n ≤ numPages) :
    refsOf (idxToPa idx) n page = if idx ≤ page ∧ page < idx + n then 1 else 0 := by
  induction n generalizing idx with
  | zero => rw [refsOf, if_neg (by omega)]
  | succ n ih =>
    have next : idxToPa idx + pageSize = idxToPa (idx + 1) := by
      unfold idxToPa
      ring
    simp only [refsOf, next, ih (show idx + 1 + n ≤ numPages by omega), refOf, pageOf_idxToPa]
    have managed : unmanaged (idxToPa idx) = false := unmanaged_idxToPa.mpr (by omega)
    by_cases first : idx = page
    · rw [if_pos ⟨managed, first⟩, if_neg (by omega), if_pos (by omega)]
    · rw [if_neg fun both => first both.2]
      by_cases rest : idx + 1 ≤ page ∧ page < idx + 1 + n
      · rw [if_pos rest, if_pos (by omega)]
      · rw [if_neg rest, if_neg (by omega)]

/-- What an allocation of a run of pages gives. -/
structure Allotted (reserved : Nat → Bool) (count : Nat → Nat) (pa n : Nat) (s' : Buddy) : Prop where
  /-- The first page has an index, and the run stays inside managed memory. -/
  start : ∃ idx, pa = idxToPa idx ∧ idx + n ≤ numPages
  unheld : ∀ page, refsOf pa n page ≠ 0 → Pooled reserved page ∧ count page = 0
  ledger : Ledger reserved (fun page => count page + refsOf pa n page) s'

theorem Allotted.of_granted {order idx : Nat} (granted : Granted (holders reserved count) order idx s') :
    Allotted reserved count (idxToPa idx) (2 ^ order) s' := by
  have size := Nat.two_pow_pos order
  have pooled : ∀ p, Covers idx order p → Pooled reserved p ∧ count p = 0 := fun p covers =>
    pooled_of_pool (granted.unheld p covers)
  have inside : idx + 2 ^ order ≤ numPages := by
    have last := (pooled (idx + (2 ^ order - 1)) ⟨by omega, by omega⟩).1.1
    omega
  have entry : ∀ p, refsOf (idxToPa idx) (2 ^ order) p = if Covers idx order p then 1 else 0 := fun p =>
    refsOf_eq (2 ^ order) inside
  refine ⟨⟨idx, rfl, inside⟩, fun p some => ?_, ?_⟩
  · by_cases covers : Covers idx order p
    · exact pooled p covers
    · rw [entry, if_neg covers] at some
      exact absurd rfl some
  · have same : (fun p => if Covers idx order p then Holder.client 1 else holders reserved count p) =
        holders reserved fun p => count p + refsOf (idxToPa idx) (2 ^ order) p := by
      funext p
      by_cases covers : Covers idx order p
      · obtain ⟨out, zero⟩ := pooled p covers
        rw [if_pos covers, holders_client out (by rw [entry, if_pos covers]; omega), entry, if_pos covers, zero]
      · rw [if_neg covers]
        exact holders_at fun _ => by simp only [entry, if_neg covers, Nat.add_zero]
    unfold Ledger
    rw [← same]
    exact granted.sound

theorem Ledger.allocPage (ledger : Ledger reserved count s) (returned : physAllocPage s = .ok (pa, s')) :
    Allotted reserved count pa 1 s' := by
  obtain ⟨idx, rfl, granted⟩ := Sound.physAllocPage ledger returned
  exact Allotted.of_granted granted

theorem Ledger.allocPages (ledger : Ledger reserved count s) {order : Nat}
    (returned : physAllocPages s order = .ok (pa, s')) : Allotted reserved count pa (2 ^ order) s' := by
  obtain ⟨_, idx, rfl, granted⟩ := Sound.physAllocPages ledger returned
  exact Allotted.of_granted granted

theorem Ledger.retain (ledger : Ledger reserved count s)
    (out : unmanaged pa = false → Pooled reserved (pageOf pa) → count (pageOf pa) ≠ 0 ∧ count (pageOf pa) < 65535) :
    Ledger reserved (fun page => count page + refOf pa page) (physRetainPage s pa) := by
  have retained : Pmm.retain (holders reserved count) pa = holders reserved fun page => count page + refOf pa page := by
    funext page
    unfold Pmm.retain
    by_cases outside : unmanaged pa = true
    · rw [if_pos outside]
      exact holders_at fun _ => by simp only [refOf_unmanaged outside, Nat.add_zero]
    · have managed : unmanaged pa = false := by simpa using outside
      rw [if_neg outside]
      by_cases same : page = pageOf pa
      · subst same
        rw [Function.update_self]
        by_cases pooled : Pooled reserved (pageOf pa)
        · rw [holders_client pooled (out managed pooled).1, Holder.retained,
            holders_client pooled (by rw [refOf_self managed]; omega), refOf_self managed]
        · rw [holders_reserved pooled, holders_reserved pooled]
          rfl
      · rw [Function.update_of_ne same]
        exact holders_at fun _ => by simp only [refOf_other (Ne.symm same), Nat.add_zero]
  unfold Ledger
  rw [← retained]
  refine Sound.retain ledger fun holds => ?_
  obtain ⟨managed, n, client⟩ := holds
  have pooled : Pooled reserved (pageOf pa) := by
    by_contra other
    rw [holders_reserved other] at client
    cases client
  intro last
  have counted := ledger.refs pooled (out managed pooled).1
  rw [last] at counted
  have small := (out managed pooled).2
  rw [← counted] at small
  exact absurd small (by decide)

theorem Ledger.free (ledger : Ledger reserved (fun page => count page + refOf pa page) s) :
    ∃ s', physFreePage s pa = .ok s' ∧ Ledger reserved count s' := by
  by_cases outside : unmanaged pa = true
  · refine ⟨s, by rw [physFreePage, if_pos outside], ledger.congr fun page _ => ?_⟩
    rw [refOf_unmanaged outside, Nat.add_zero]
  have managed : unmanaged pa = false := by simpa using outside
  by_cases pooled : Pooled reserved (pageOf pa)
  · have client : holders reserved (fun page => count page + refOf pa page) (pageOf pa) =
        .client (count (pageOf pa) + refOf pa (pageOf pa)) :=
      holders_client pooled (by rw [refOf_self managed]; omega)
    obtain ⟨s', freed, sound⟩ := Sound.physFreePage ledger managed client
    refine ⟨s', freed, ?_⟩
    have same : Function.update (holders reserved fun page => count page + refOf pa page) (pageOf pa)
        (Holder.released (.client (count (pageOf pa) + refOf pa (pageOf pa)))) = holders reserved count := by
      funext page
      by_cases same : page = pageOf pa
      · subst same
        rw [Function.update_self, refOf_self managed, Holder.released, holders, if_pos pooled]
        by_cases last : count (pageOf pa) = 0
        · simp [last]
        · rw [if_neg (by omega), if_neg last, Nat.add_sub_cancel]
      · rw [Function.update_of_ne same]
        exact holders_at fun _ => by simp only [refOf_other (Ne.symm same), Nat.add_zero]
    unfold Ledger
    rw [← same]
    exact sound
  · -- The tag of a reserved page makes the free leave it alone.
    have tag : s.pageState (pageOf pa) = .reserved :=
      ledger.reservedTag (pageOf_lt managed) (holders_reserved pooled)
    refine ⟨s, by simp [physFreePage, managed, tag, PageState.untouchable], ledger.congr fun page here => ?_⟩
    have apart : pageOf pa ≠ page := by
      rintro rfl
      exact pooled here
    rw [refOf_other apart, Nat.add_zero]

theorem Ledger.freed (ledger : Ledger reserved (fun page => count page + refOf pa page) s)
    (returned : physFreePage s pa = .ok s') : Ledger reserved count s' := by
  obtain ⟨s₁, freed, ledger'⟩ := ledger.free
  cases freed.symm.trans returned
  exact ledger'

theorem boot_ledger {blocks : List (Nat × Nat)} (tiles : Tiles reserved blocks) :
    Ledger reserved (fun _ => 0) (bootBuddy reserved blocks) := by
  have same : holders reserved (fun _ => 0) = bootOwn reserved := by
    funext page
    simp [holders, bootOwn, Pooled]
  unfold Ledger
  rw [same]
  exact boot_sound tiles

end

end Enlil.Pmm
