import Mathlib

/-! Walking a path component by component through a tree with symbolic links. -/

namespace Enlil.LinkWalk

/-- A component of a path: the directory itself, the one above it, or a name in it. -/
inductive Component (α : Type*) where
  | same
  | up
  | name (name : α)
  deriving DecidableEq, Repr

/-- What a tree holds under a path. -/
inductive Entry (α : Type*) where
  | missing
  | unreadable
  | leaf
  | dir
  /-- The components a link leads over, from the root or from the directory of the link, unless they cannot be read. -/
  | link (target : Option (Bool × List (Component α)))

section

variable {α : Type*} (tree : List α → Entry α) (follow mayMiss : Bool)

/-- Walks over the components ahead; what comes after a link is left to another walk. -/
def walkParts (again : List α → List (Component α) → Option (List α)) : List α → List (Component α) → Option (List α)
  | dir, [] => some dir
  | dir, .same :: ahead => walkParts again dir ahead
  | dir, .up :: ahead => walkParts again dir.dropLast ahead
  | dir, .name name :: ahead =>
    match tree (dir ++ [name]) with
    | .missing => if ahead = [] ∧ mayMiss = true then some (dir ++ [name]) else none
    | .unreadable => none
    | .leaf => if ahead = [] then some (dir ++ [name]) else none
    | .dir => walkParts again (dir ++ [name]) ahead
    | .link target =>
      if ahead = [] ∧ follow = false then some (dir ++ [name])
      else target.bind fun (fromRoot, parts) => again (if fromRoot then [] else dir) (parts ++ ahead)

/-- Walks over the components ahead, over at most so many links. -/
def walkLinks : Nat → List α → List (Component α) → Option (List α)
  | 0 => walkParts tree follow mayMiss fun _ _ => none
  | links + 1 => walkParts tree follow mayMiss (walkLinks links)

end

section

variable {α : Type*} {tree : List α → Entry α} {follow mayMiss : Bool} {names front : List α}

/-- Every directory on the way, and the last one too, is one. -/
def Dirs (tree : List α → Entry α) (names : List α) : Prop := ∀ front, front <+: names → front ≠ [] → tree front = .dir

/-- Where a walk may end: below directories, and at no link that it should have followed. -/
structure Arrived (tree : List α → Entry α) (follow : Bool) (names : List α) : Prop where
  dirs : ∀ front, front <+: names → front ≠ [] → front ≠ names → tree front = .dir
  followed : follow = true → names ≠ [] → ∀ target, tree names ≠ .link target

theorem Dirs.nil : Dirs tree [] := fun _ front some_name => absurd (List.prefix_nil.mp front) some_name

theorem Dirs.append {name : α} (dirs : Dirs tree names) (last : tree (names ++ [name]) = .dir) :
    Dirs tree (names ++ [name]) := by
  intro front before some_name
  rcases List.prefix_concat_iff.mp before with rfl | before
  · exact last
  · exact dirs front before some_name

theorem Dirs.dropLast (dirs : Dirs tree names) : Dirs tree names.dropLast := fun front before =>
  dirs front (before.trans (List.dropLast_prefix names))

theorem Dirs.arrived (dirs : Dirs tree names) : Arrived tree follow names where
  dirs front before some_name _ := dirs front before some_name
  followed _ some_name target := by
    rw [dirs names List.prefix_rfl some_name]
    simp

/-- One more name below directories is an end, unless it is a link to be followed. -/
theorem Dirs.arrived_append {name : α} (dirs : Dirs tree names)
    (followed : follow = true → ∀ target, tree (names ++ [name]) ≠ .link target) : Arrived tree follow (names ++ [name]) where
  dirs front before some_name short := by
    rcases List.prefix_concat_iff.mp before with same | before
    · exact absurd same short
    · exact dirs front before some_name
  followed follows _ := followed follows

/-- A walk from a directory ends where walks may end, if those behind its links do. -/
theorem walkParts_arrived {again : List α → List (Component α) → Option (List α)}
    (behind : ∀ dir ahead last, Dirs tree dir → again dir ahead = some last → Arrived tree follow last)
    {dir last : List α} {ahead : List (Component α)} (dirs : Dirs tree dir)
    (walked : walkParts tree follow mayMiss again dir ahead = some last) : Arrived tree follow last := by
  induction ahead generalizing dir with
  | nil => exact Option.some.inj walked ▸ dirs.arrived
  | cons part ahead ih =>
    cases part with
    | same => exact ih dirs walked
    | up => exact ih dirs.dropLast walked
    | name name =>
      rw [walkParts] at walked
      cases entry : tree (dir ++ [name]) with
      | missing =>
        simp only [entry] at walked
        split at walked
        · exact Option.some.inj walked ▸ dirs.arrived_append fun _ target => by simp [entry]
        · cases walked
      | unreadable =>
        simp only [entry] at walked
        cases walked
      | leaf =>
        simp only [entry] at walked
        split at walked
        · exact Option.some.inj walked ▸ dirs.arrived_append fun _ target => by simp [entry]
        · cases walked
      | dir =>
        simp only [entry] at walked
        exact ih (dirs.append entry) walked
      | link target =>
        simp only [entry] at walked
        split at walked
        · rename_i stays
          refine Option.some.inj walked ▸ dirs.arrived_append fun follows => ?_
          rw [stays.2] at follows
          cases follows
        · obtain ⟨⟨fromRoot, parts⟩, _, walked⟩ := Option.bind_eq_some_iff.mp walked
          refine behind _ _ _ ?_ walked
          -- An absolute target starts at the root, a relative one in the directory of the link.
          cases fromRoot
          · exact dirs
          · exact Dirs.nil

/-- A walk from a directory ends below directories, and at no link that it should have followed. -/
theorem walkLinks_arrived {links : Nat} {dir last : List α} {ahead : List (Component α)} (dirs : Dirs tree dir)
    (walked : walkLinks tree follow mayMiss links dir ahead = some last) : Arrived tree follow last := by
  induction links generalizing dir ahead last with
  | zero => exact walkParts_arrived (fun _ _ _ _ walked => by cases walked) dirs walked
  | succ links ih => exact walkParts_arrived (fun _ _ _ dirs walked => ih dirs walked) dirs walked

/-- Names of directories are walked over. -/
theorem walkParts_dirs (again : List α → List (Component α) → Option (List α)) {dir : List α} (ahead : List (Component α))
    (dirs : ∀ front, front <+: names → front ≠ [] → tree (dir ++ front) = .dir) :
    walkParts tree follow mayMiss again dir (names.map .name ++ ahead) =
      walkParts tree follow mayMiss again (dir ++ names) ahead := by
  induction names generalizing dir with
  | nil => simp
  | cons name names ih =>
    have first : tree (dir ++ [name]) = .dir := dirs [name] ⟨names, rfl⟩ (by simp)
    have others : ∀ front, front <+: names → front ≠ [] → tree (dir ++ [name] ++ front) = .dir := by
      intro front before _
      rw [List.append_assoc]
      exact dirs (name :: front) (List.cons_prefix_cons.mpr ⟨rfl, before⟩) (by simp)
    rw [List.map_cons, List.cons_append, walkParts, first]
    simp only
    rw [ih others, List.append_assoc, List.singleton_append]

/-- A walk that starts again at the root comes back to the directory it was in. -/
theorem walkLinks_dirs (links : Nat) (ahead : List (Component α)) (dirs : Dirs tree names) :
    walkLinks tree follow mayMiss links [] (names.map .name ++ ahead) = walkLinks tree follow mayMiss links names ahead := by
  have before : ∀ front, front <+: names → front ≠ [] → tree ([] ++ front) = .dir := dirs
  cases links with
  | zero => exact walkParts_dirs _ ahead before
  | succ links => exact walkParts_dirs _ ahead before

end

end Enlil.LinkWalk
