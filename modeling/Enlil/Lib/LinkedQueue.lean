import Mathlib

/-! Queues linked through their nodes, with a head and a tail: taking a node out and putting one at the end. -/

namespace Enlil

section

variable {α : Type}

/-- The nodes met by following the links from a start to the end. -/
def Path (next : α → Option α) : Option α → List α → Prop
  | start, [] => start = none
  | start, node :: rest => start = some node ∧ Path next (next node) rest

/-- A queue: its nodes in order, each once, from its head to its tail. -/
structure Linked (next : α → Option α) (head tail : Option α) (nodes : List α) : Prop where
  path : Path next head nodes
  last : tail = nodes.getLast?
  nodup : nodes.Nodup

variable {next next' : α → Option α} {start head tail : Option α} {nodes before after : List α} {node last : α}

/-- A path depends on the links of its own nodes only. -/
theorem Path.congr (path : Path next start nodes) (same : ∀ node ∈ nodes, next' node = next node) :
    Path next' start nodes := by
  induction nodes generalizing start with
  | nil => exact path
  | cons node rest ih =>
    obtain ⟨first, tail⟩ := path
    refine ⟨first, ?_⟩
    rw [same node List.mem_cons_self]
    exact ih tail fun other member => same other (List.mem_cons_of_mem _ member)

/-- The start of a path is its first node. -/
theorem Path.start_eq (path : Path next start nodes) : start = nodes.head? := by
  cases nodes with
  | nil => exact path
  | cons node rest => exact path.1

/-- The link of a node is the node after it. -/
theorem Path.next_eq (path : Path next start (before ++ node :: after)) : next node = after.head? := by
  induction before generalizing start with
  | nil => exact path.2.start_eq
  | cons first rest ih => exact ih path.2

variable [DecidableEq α]

/-- A node is taken out of a path by the link of the node before it, or by its start. -/
theorem Path.unlink (path : Path next start (before ++ node :: after)) (nodup : (before ++ node :: after).Nodup) :
    match before.getLast? with
    | none => Path next (next node) (before ++ after)
    | some prev => Path (Function.update next prev (next node)) start (before ++ after) := by
  induction before generalizing start with
  | nil => exact path.2
  | cons first rest ih =>
    obtain ⟨begin, tail⟩ := path
    rw [List.cons_append, List.nodup_cons] at nodup
    have below := ih tail nodup.2
    cases rest with
    | nil =>
      -- The node comes right after the first one, whose link is changed.
      have alone : first ∉ after := fun member => nodup.1 (by simp [member])
      show Path (Function.update next first (next node)) start ([first] ++ after)
      refine ⟨begin, ?_⟩
      rw [Function.update_self]
      apply tail.2.congr
      intro other member
      rw [Function.update_of_ne]
      rintro rfl
      exact alone member
    | cons second more =>
      rw [List.getLast?_cons_cons]
      cases final : (second :: more).getLast? with
      | none => simp at final
      | some prev =>
        rw [final] at below
        have inside : prev ∈ second :: more := List.mem_of_getLast? final
        have other : first ≠ prev := by
          rintro rfl
          exact nodup.1 (List.mem_append_left _ inside)
        refine ⟨begin, ?_⟩
        rw [Function.update_of_ne other]
        exact below

/-- A node is put at the end of a path by the link of the last node, or by its start. -/
theorem Path.append (path : Path next start nodes) (nodup : nodes.Nodup) (fresh : node ∉ nodes) (ends : next node = none) :
    match nodes.getLast? with
    | none => Path next (some node) (nodes ++ [node])
    | some last => Path (Function.update next last (some node)) start (nodes ++ [node]) := by
  induction nodes generalizing start with
  | nil => exact ⟨rfl, ends⟩
  | cons first rest ih =>
    obtain ⟨begin, tail⟩ := path
    rw [List.nodup_cons] at nodup
    have apart : node ≠ first := fun same => fresh (by simp [same])
    have below := ih tail nodup.2 fun member => fresh (List.mem_cons_of_mem _ member)
    cases rest with
    | nil =>
      show Path (Function.update next first (some node)) start ([first] ++ [node])
      refine ⟨begin, ?_⟩
      rw [Function.update_self]
      refine ⟨rfl, ?_⟩
      rw [Function.update_of_ne apart]
      exact ends
    | cons second more =>
      rw [List.getLast?_cons_cons]
      cases final : (second :: more).getLast? with
      | none => simp at final
      | some last =>
        rw [final] at below
        have inside : last ∈ second :: more := List.mem_of_getLast? final
        have other : first ≠ last := by
          rintro rfl
          exact nodup.1 inside
        refine ⟨begin, ?_⟩
        rw [Function.update_of_ne other]
        exact below

omit [DecidableEq α] in
theorem Linked.congr (linked : Linked next head tail nodes) (same : ∀ node ∈ nodes, next' node = next node) :
    Linked next' head tail nodes := ⟨linked.path.congr same, linked.last, linked.nodup⟩

/-- The links after a node was taken out. -/
def unlinkNext (next : α → Option α) (prev : Option α) (node : α) : α → Option α :=
  match prev with
  | none => Function.update next node none
  | some prev => Function.update (Function.update next prev (next node)) node none

/-- The head after a node was taken out. -/
def unlinkHead (next : α → Option α) (head prev : Option α) (node : α) : Option α :=
  match prev with
  | none => next node
  | some _ => head

/-- The tail after a node was taken out. -/
def unlinkTail (tail prev : Option α) (node : α) : Option α := if tail = some node then prev else tail

/-- Taking a node out of a queue. -/
theorem Linked.unlink (linked : Linked next head tail (before ++ node :: after)) :
    Linked (unlinkNext next before.getLast? node) (unlinkHead next head before.getLast? node)
      (unlinkTail tail before.getLast? node) (before ++ after) := by
  have gone : node ∉ before ++ after := by
    have nodup := linked.nodup
    rw [List.nodup_middle, List.nodup_cons] at nodup
    exact nodup.1
  refine ⟨?_, ?_, ?_⟩
  · have path := linked.path.unlink linked.nodup
    unfold unlinkNext unlinkHead
    cases final : before.getLast? with
    | none =>
      rw [final] at path
      apply path.congr
      intro other member
      have different : other ≠ node := by
        rintro rfl
        exact gone member
      exact Function.update_of_ne different none next
    | some prev =>
      rw [final] at path
      apply path.congr
      intro other member
      have different : other ≠ node := by
        rintro rfl
        exact gone member
      exact Function.update_of_ne different none (Function.update next prev (next node))
  · rw [unlinkTail, linked.last]
    cases after with
    | nil => simp
    | cons second more =>
      have later : (before ++ node :: second :: more).getLast? ≠ some node := by
        intro same
        rw [List.getLast?_append, List.getLast?_cons_cons] at same
        have inside : node ∈ second :: more := by
          cases final : (second :: more).getLast? with
          | none => simp at final
          | some last =>
            rw [final] at same
            cases same
            exact List.mem_of_getLast? final
        exact gone (List.mem_append_right _ inside)
      rw [if_neg later, List.getLast?_append, List.getLast?_append, List.getLast?_cons_cons]
  · have nodup := linked.nodup
    rw [List.nodup_middle, List.nodup_cons] at nodup
    exact nodup.2

/-- The links after a node was put at the end. -/
def appendNext (next : α → Option α) (tail : Option α) (node : α) : α → Option α :=
  match tail with
  | none => Function.update next node none
  | some last => Function.update (Function.update next node none) last (some node)

/-- Putting a node at the end of a queue. -/
theorem Linked.append (linked : Linked next head tail nodes) (fresh : node ∉ nodes) :
    Linked (appendNext next tail node) (if head = none then some node else head) (some node) (nodes ++ [node]) := by
  have path : Path (Function.update next node none) head nodes := by
    apply linked.path.congr
    intro other member
    rw [Function.update_of_ne]
    rintro rfl
    exact fresh member
  have longer := path.append linked.nodup fresh (Function.update_self node none next)
  have start := linked.path.start_eq
  refine ⟨?_, ?_, ?_⟩
  · rw [linked.last]
    cases nodes with
    | nil =>
      rw [start]
      exact longer
    | cons first rest =>
      rw [start, List.head?_cons, if_neg (by simp)]
      cases final : (first :: rest).getLast? with
      | none => simp at final
      | some last =>
        rw [final, start] at longer
        exact longer
  · simp
  · rw [List.nodup_append]
    refine ⟨linked.nodup, by simp, ?_⟩
    rintro a member b only rfl
    rw [List.mem_singleton] at only
    exact fresh (only ▸ member)

end

end Enlil
