import Mathlib

/-! Programs that ask their surroundings for answers, and what their questions change there. -/

namespace Enlil

/-- A program that asks questions until it is done. -/
inductive Asks (ι ρ α : Type) where
  | done (result : α)
  | ask (question : ι) (next : ρ → Asks ι ρ α)

namespace Asks

variable {ι ρ α β σ ν κ : Type}

/-- Goes on with another program. -/
def bind : Asks ι ρ α → (α → Asks ι ρ β) → Asks ι ρ β
  | done value, rest => rest value
  | ask question next, rest => ask question fun answer => (next answer).bind rest

/-- What comes out where a question always has the same answer. -/
def result (answers : ι → ρ) : Asks ι ρ α → α
  | done value => value
  | ask question next => (next (answers question)).result answers

/-- The questions that are asked where a question always has the same answer. -/
def questions (answers : ι → ρ) : Asks ι ρ α → List ι
  | done _ => []
  | ask question next => question :: (next (answers question)).questions answers

/-- What comes out and what is left of surroundings that every question may change. -/
def run (answer : ι → σ → ρ × σ) : Asks ι ρ α → σ → α × σ
  | done value, s => (value, s)
  | ask question next, s => (next (answer question s).1).run answer (answer question s).2

@[simp] theorem result_done (answers : ι → ρ) (value : α) : (done value : Asks ι ρ α).result answers = value := rfl

theorem result_bind (answers : ι → ρ) (first : Asks ι ρ α) (rest : α → Asks ι ρ β) :
    (first.bind rest).result answers = (rest (first.result answers)).result answers := by
  induction first with
  | done => rfl
  | ask question next ih => exact ih (answers question)

@[simp] theorem questions_done (answers : ι → ρ) (value : α) : (done value : Asks ι ρ α).questions answers = [] := rfl

/-- The second program's questions come behind those of the first. -/
theorem questions_bind (answers : ι → ρ) (first : Asks ι ρ α) (rest : α → Asks ι ρ β) :
    (first.bind rest).questions answers =
      first.questions answers ++ (rest (first.result answers)).questions answers := by
  induction first with
  | done => rfl
  | ask question next ih => exact congrArg (question :: ·) (ih (answers question))

/-- What every question leaves true is true at the end. -/
theorem run_invariant {answer : ι → σ → ρ × σ} {Inv : σ → Prop}
    (kept : ∀ question s, Inv s → Inv (answer question s).2) (program : Asks ι ρ α) {s : σ} (holds : Inv s) :
    Inv (program.run answer s).2 := by
  induction program generalizing s with
  | done => exact holds
  | ask question next ih => exact ih _ (kept question s holds)

/-- Surroundings of which a part is seen: what is seen determines the answers, and a question changes it only if it disturbs; then something is lost that no question brings back. -/
structure Observed [Preorder κ] (answer : ι → σ → ρ × σ) (Inv : σ → Prop) (seen : σ → ν) (rank : ν → κ)
    (Disturbs : ν → ι → Prop) : Prop where
  kept : ∀ question s, Inv s → Inv (answer question s).2
  answered : ∀ question {s t}, seen s = seen t → (answer question s).1 = (answer question t).1
  quiet : ∀ question {s}, Inv s → ¬ Disturbs (seen s) question → seen (answer question s).2 = seen s
  falls : ∀ question s, rank (seen (answer question s).2) ≤ rank (seen s)
  lost : ∀ question {s}, Disturbs (seen s) question → rank (seen (answer question s).2) < rank (seen s)

variable [Preorder κ] {answer : ι → σ → ρ × σ} {Inv : σ → Prop} {seen : σ → ν} {rank : ν → κ} {Disturbs : ν → ι → Prop}

/-- A program only falls. -/
theorem Observed.run_falls (observed : Observed answer Inv seen rank Disturbs) (program : Asks ι ρ α) (s : σ) :
    rank (seen (program.run answer s).2) ≤ rank (seen s) := by
  induction program generalizing s with
  | done => exact le_refl _
  | ask question next ih => exact (ih _ _).trans (observed.falls question s)

/-- Surroundings that look the same answer the same. -/
theorem Observed.answers_same (observed : Observed answer Inv seen rank Disturbs) {s t : σ} (same : seen t = seen s) :
    (fun question => (answer question t).1) = fun question => (answer question s).1 :=
  funext fun question => observed.answered question same

/-- A program leaves what is seen as it is exactly if none of its questions, as they are answered at the start, disturbs. -/
theorem Observed.run_seen_iff (observed : Observed answer Inv seen rank Disturbs) (program : Asks ι ρ α) {s : σ}
    (holds : Inv s) : seen (program.run answer s).2 = seen s ↔
      ∀ question ∈ program.questions fun question => (answer question s).1, ¬ Disturbs (seen s) question := by
  induction program generalizing s with
  | done => simp [run, questions]
  | ask question next ih =>
    rw [run, questions, List.forall_mem_cons]
    by_cases disturbs : Disturbs (seen s) question
    · -- What was lost does not come back.
      refine iff_of_false (fun same => ?_) fun ⟨quiet, _⟩ => quiet disturbs
      have below := observed.run_falls (next (answer question s).1) (answer question s).2
      rw [same] at below
      exact absurd (observed.lost question disturbs) (not_lt_of_ge below)
    · -- The rest of the program starts from surroundings that look the same.
      have same := observed.quiet question holds disturbs
      rw [← same, ih (answer question s).1 (observed.kept question s holds), observed.answers_same same, same]
      exact (and_iff_right disturbs).symm

/-- Then it also comes to the same result as where nothing changes. -/
theorem Observed.run_result (observed : Observed answer Inv seen rank Disturbs) (program : Asks ι ρ α) {s : σ}
    (holds : Inv s)
    (quiet : ∀ question ∈ program.questions fun question => (answer question s).1, ¬ Disturbs (seen s) question) :
    (program.run answer s).1 = program.result fun question => (answer question s).1 := by
  induction program generalizing s with
  | done => rfl
  | ask question next ih =>
    rw [questions, List.forall_mem_cons] at quiet
    have same := observed.quiet question holds quiet.1
    rw [run, result, ih (answer question s).1 (observed.kept question s holds), observed.answers_same same]
    rw [observed.answers_same same, same]
    exact quiet.2

end Asks

end Enlil
