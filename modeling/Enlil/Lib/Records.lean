import Mathlib

/-! Records in a sequence, each of which ends with a certain value; only the last one may be without it. -/

namespace Enlil

section

variable {α : Type*} [DecidableEq α] (stop : α)

/-- The records of a sequence. -/
def recordsOf : List α → List (List α)
  | [] => []
  | a :: l =>
    if a = stop then [a] :: recordsOf l
    else
      match recordsOf l with
      | [] => [[a]]
      | record :: records => (a :: record) :: records

/-- The first values of a sequence, so many of them, but none behind the end of its first record. -/
def pieceOf : Nat → List α → List α
  | 0, _ => []
  | _ + 1, [] => []
  | n + 1, a :: l => if a = stop then [a] else a :: pieceOf n l

/-- The last record of a sequence has its end. -/
def Ended (l : List α) : Prop := l = [] ∨ l.getLast? = some stop

instance (l : List α) : Decidable (Ended stop l) := inferInstanceAs (Decidable (_ ∨ _))

variable {stop} {l m record : List α} {records : List (List α)}

theorem recordsOf_ne_nil (some : l ≠ []) : recordsOf stop l ≠ [] := by
  cases l with
  | nil => exact absurd rfl some
  | cons a l =>
    rw [recordsOf]
    split
    · exact List.cons_ne_nil _ _
    · split <;> exact List.cons_ne_nil _ _

/-- Behind a record that has its end others begin. -/
theorem recordsOf_append (ended : Ended stop l) : recordsOf stop (l ++ m) = recordsOf stop l ++ recordsOf stop m := by
  induction l with
  | nil => rfl
  | cons a l ih =>
    rw [List.cons_append, recordsOf, recordsOf]
    by_cases last : l = []
    · -- The only value is the end.
      have same : a = stop := by
        rcases ended with none | is
        · cases none
        · rw [last] at is
          exact Option.some.inj is
      rw [if_pos same, if_pos same, last]
      rfl
    · have rest : Ended stop l := by
        rcases ended with none | is
        · cases none
        · refine .inr ?_
          rw [← is, List.getLast?_cons]
          cases l with
          | nil => exact absurd rfl last
          | cons b l => simp [List.getLast?_cons]
      rw [ih rest]
      split
      · rfl
      · cases found : recordsOf stop l with
        | nil => exact absurd found (recordsOf_ne_nil last)
        | cons record records => rfl

/-- Values without the end are one record, if there are any. -/
theorem recordsOf_part (none : stop ∉ l) (some : l ≠ []) : recordsOf stop l = [l] := by
  induction l with
  | nil => exact absurd rfl some
  | cons a l ih =>
    have other : a ≠ stop := fun same => none (same ▸ List.mem_cons_self)
    rw [recordsOf, if_neg other]
    by_cases last : l = []
    · rw [last]
      rfl
    · rw [ih (fun member => none (List.mem_cons_of_mem _ member)) last]

/-- Values without the end and then the end are one record. -/
theorem recordsOf_whole (none : stop ∉ l) : recordsOf stop (l ++ [stop]) = [l ++ [stop]] := by
  induction l with
  | nil =>
    rw [List.nil_append, recordsOf, if_pos rfl]
    rfl
  | cons a l ih =>
    have other : a ≠ stop := fun same => none (same ▸ List.mem_cons_self)
    rw [List.cons_append, recordsOf, if_neg other, ih fun member => none (List.mem_cons_of_mem _ member)]

/-- The first piece of a sequence is one of its first record. -/
theorem pieceOf_eq (n : Nat) (found : recordsOf stop l = record :: records) : pieceOf stop n l = record.take n := by
  induction n generalizing l record records with
  | zero => rfl
  | succ n ih =>
    cases l with
    | nil => cases found
    | cons a l =>
      rw [recordsOf] at found
      rw [pieceOf]
      split
      · rename_i same
        rw [if_pos same] at found
        cases found
        simp
      · rename_i other
        rw [if_neg other] at found
        split at found
        · rename_i last
          have none : l = [] := by
            by_contra some
            exact recordsOf_ne_nil some last
          cases found
          rw [none]
          cases n <;> simp [pieceOf]
        · rename_i first rest split
          cases found
          rw [ih split, List.take_succ_cons]

/-- What is left behind the first piece begins with the rest of the first record, if there is any. -/
theorem recordsOf_drop (n : Nat) (found : recordsOf stop l = record :: records) :
    recordsOf stop (l.drop (record.take n).length) =
      if record.length ≤ n then records else record.drop n :: records := by
  induction n generalizing l record records with
  | zero =>
    have some : ¬ record.length ≤ 0 := by
      intro none
      have empty : record = [] := List.eq_nil_of_length_eq_zero (Nat.le_zero.mp none)
      rw [empty] at found
      cases l with
      | nil => cases found
      | cons a l =>
        rw [recordsOf] at found
        split at found
        · cases found
        · split at found <;> cases found
    rw [if_neg some, List.take_zero, List.length_nil, List.drop_zero, List.drop_zero, found]
  | succ n ih =>
    cases l with
    | nil => cases found
    | cons a l =>
      rw [recordsOf] at found
      split at found
      · cases found
        simp
      · split at found
        · rename_i last
          cases found
          have none : l = [] := by
            by_contra some
            exact recordsOf_ne_nil some last
          rw [none]
          simp [recordsOf]
        · rename_i first rest split
          cases found
          have tail := ih split
          rw [List.take_succ_cons, List.length_cons, List.drop_succ_cons, tail, List.length_cons, List.drop_succ_cons]
          simp only [Nat.add_le_add_iff_right]

theorem pieceOf_ne_nil {n : Nat} (some : 0 < n) (more : l ≠ []) : pieceOf stop n l ≠ [] := by
  obtain ⟨n, rfl⟩ := Nat.exists_eq_succ_of_ne_zero some.ne'
  cases l with
  | nil => exact absurd rfl more
  | cons a l =>
    rw [pieceOf]
    split <;> exact List.cons_ne_nil _ _

end

end Enlil
