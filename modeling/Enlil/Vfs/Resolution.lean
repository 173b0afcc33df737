import Enlil.Vfs.Components
import Enlil.Lib.LinkWalk

/-! What `vfs_resolve_path_flags` of `kernel/vfs.c` finds: the path that a walk over the components leads to. -/

namespace Enlil.Vfs

open SlashPath LinkWalk

/-- How a component of a path is read. -/
def part (comp : CString) : Component CString :=
  if comp = ['.'] then .same else if comp = ['.', '.'] then .up else .name comp

/-- The components of a path. -/
def parts (path : CString) : List (Component CString) := (segments path).map part

/-- Some mount point lies below a directory. -/
def mountBelow (mounts : List CString) (names : List CString) : Bool :=
  mounts.any fun mount => (slashed names ++ ['/']).isPrefixOf mount

/-- The tree that the answers about paths tell of; where a mount point lies below, a directory is missing from no tree. -/
def tree (lstat : CString → Except Errno UInt32) (readlink : CString → Except Errno CString) (mounts : List CString)
    (names : List CString) : Entry CString :=
  match lstat (render names) with
  | .error error => if error = .enoent then if mountBelow mounts names = true then .dir else .missing else .unreadable
  | .ok mode =>
    if isLink mode = true then
      match readlink (render names) with
      | .error _ => .link none
      | .ok target => .link (some (target.head? == some '/', parts target))
    else if isDir mode = true then .dir
    else .leaf

section

variable {lstat : CString → Except Errno UInt32} {readlink : CString → Except Errno CString} {mounts : List CString}
  {followFinal allowMissingFinal : Bool} {restart : Except Errno (CString → Except Errno CString)}
  {dir names : List CString} {pending resolved path : CString}

theorem walk_enough {left more : Nat} (enough : pending.length ≤ left) (enough' : pending.length ≤ more) :
    walk lstat readlink mounts followFinal allowMissingFinal restart left pending resolved =
      walk lstat readlink mounts followFinal allowMissingFinal restart more pending resolved := by
  induction left generalizing more pending resolved with
  | zero =>
    obtain rfl := List.length_eq_zero_iff.mp (Nat.le_zero.mp enough)
    cases more with
    | zero => rfl
    | succ more => rw [walk, walk, if_pos rfl]
  | succ left ih =>
    cases more with
    | zero =>
      obtain rfl := List.length_eq_zero_iff.mp (Nat.le_zero.mp enough')
      rw [walk, walk, if_pos rfl]
    | succ more =>
      by_cases empty : component pending = []
      · -- No component is read at a slash, and none is appended.
        simp [walk, empty, vfsPathAppendComponent]
      · have shorter := afterComponent_lt empty
        have again : ∀ resolved, walk lstat readlink mounts followFinal allowMissingFinal restart left (afterComponent pending) resolved =
            walk lstat readlink mounts followFinal allowMissingFinal restart more (afterComponent pending) resolved :=
          fun _ => ih (by omega) (by omega)
        simp only [walk, again]

@[simp] theorem walk_nil (left : Nat) :
    walk lstat readlink mounts followFinal allowMissingFinal restart left [] resolved = .ok resolved := by
  cases left <;> simp [walk]

@[simp] theorem parts_nil : parts [] = [] := rfl

theorem parts_component (some_char : pending ≠ []) (start : pending.head? ≠ some '/') :
    parts pending = part (component pending) :: parts (afterComponent pending) := by
  rw [parts, segments_component some_char start, List.map_cons]
  rfl

theorem parts_skipSlashes (path : CString) : parts (skipSlashes path) = parts path :=
  congrArg (List.map part) (segments_dropWhile path)

theorem parts_eq_nil (start : pending.head? ≠ some '/') : parts pending = [] ↔ pending = [] := by
  constructor
  · intro none
    by_contra some_char
    rw [parts_component some_char start] at none
    cases none
  · rintro rfl
    rfl

theorem map_part (proper : Proper names) : names.map part = names.map .name := by
  refine List.map_congr_left fun name mem => ?_
  obtain ⟨_, _, same, up⟩ := proper name mem
  rw [part, if_neg same, if_neg up]

/-- The path of names that a walk leads to, if it does, and if a path may be as long. -/
def Found (walked : Option (List CString)) (path : CString) : Prop :=
  ∃ names, Proper names ∧ path = render names ∧ path.length < vfsPathMax ∧ walked = some names

theorem found_render (proper : Proper names) (fits : (render names).length < vfsPathMax) : Found (some names) (render names) :=
  ⟨names, proper, rfl, fits, rfl⟩

theorem render_dropLast_le (plain : Plain names) : (render names.dropLast).length ≤ (render names).length := by
  by_cases same : names.dropLast = names
  · rw [same]
  · exact (render_length_lt plain (List.dropLast_prefix names) same).le

theorem vfsHasMountDescendant_render (mounts : List CString) (some_name : names ≠ []) (longer : render names ≠ ['/']) :
    vfsHasMountDescendant mounts (render names) = mountBelow mounts names := by
  rw [vfsHasMountDescendant, render_head, mountBelow]
  simp only [beq_self_eq_true, Bool.true_and, if_neg longer]
  congr 1
  funext mount
  rw [render_of_ne some_name, Bool.eq_iff_iff, Bool.and_eq_true, List.isPrefixOf_iff_prefix, List.isPrefixOf_iff_prefix,
    beq_iff_eq]
  constructor
  · rintro ⟨⟨rest, rfl⟩, slash⟩
    rw [List.getElem?_append_right (Nat.le_refl _), Nat.sub_self] at slash
    cases rest with
    | nil => cases slash
    | cons c rest =>
      rw [← show c = '/' from Option.some.inj slash]
      exact ⟨rest, by rw [List.append_assoc, List.singleton_append]⟩
  · rintro ⟨rest, rfl⟩
    rw [List.append_assoc]
    refine ⟨List.prefix_append _ _, ?_⟩
    rw [List.getElem?_append_right (Nat.le_refl _), Nat.sub_self]
    rfl

theorem render_longer (proper : Proper names) (some_name : names ≠ []) : render names ≠ ['/'] := by
  intro root
  have same : names = [] := render_inj proper.plain (by simp [Plain]) root
  exact some_name same

theorem walk_sound {left : Nat} {again : List CString → List (Component CString) → Option (List CString)}
    (behind : ∀ walkAgain, restart = .ok walkAgain → ∀ merged result, walkAgain merged = .ok result →
      Found (again [] (parts merged)) result)
    (resumes : ∀ front ahead result, Dirs (tree lstat readlink mounts) front →
      Found (again [] (front.map .name ++ ahead)) result → Found (again front ahead) result)
    (enough : pending.length ≤ left) (start : pending.head? ≠ some '/') (proper : Proper dir)
    (fits : (render dir).length < vfsPathMax) (dirs : Dirs (tree lstat readlink mounts) dir) {result : CString}
    (walked : walk lstat readlink mounts followFinal allowMissingFinal restart left pending (render dir) = .ok result) :
    Found (walkParts (tree lstat readlink mounts) followFinal allowMissingFinal again dir (parts pending)) result := by
  induction left generalizing pending dir with
  | zero =>
    obtain rfl := List.length_eq_zero_iff.mp (Nat.le_zero.mp enough)
    exact Except.ok.inj walked ▸ found_render proper fits
  | succ left ih =>
    rw [walk] at walked
    by_cases done : pending = []
    · subst done
      rw [if_pos rfl] at walked
      exact Except.ok.inj walked ▸ found_render proper fits
    have some_char := component_ne done start
    have enough : (afterComponent pending).length ≤ left := by
      have shorter := afterComponent_lt some_char
      omega
    have start' : (afterComponent pending).head? ≠ some '/' := skipSlashes_head _
    rw [if_neg done] at walked
    rw [parts_component done start, part]
    by_cases same : component pending = ['.']
    · rw [if_pos same] at walked ⊢
      exact ih enough start' proper fits dirs walked
    rw [if_neg same] at walked ⊢
    by_cases up : component pending = ['.', '.']
    · rw [if_pos up, vfsPathPopLast_render proper.plain] at walked
      rw [if_pos up]
      exact ih enough start' proper.dropLast (by have shorter := render_dropLast_le proper.plain; omega) dirs.dropLast walked
    rw [if_neg up, vfsPathAppendComponent_render proper.plain some_char (by decide)] at walked
    rw [if_neg up]
    have longer : Proper (dir ++ [component pending]) := proper.append ⟨some_char, component_clear pending, same, up⟩
    have below := vfsHasMountDescendant_render mounts (by simp) (render_longer longer (by simp))
    by_cases long : vfsPathMax < (render (dir ++ [component pending])).length + 1
    · rw [if_pos long] at walked
      cases walked
    rw [if_neg long] at walked
    rw [walkParts]
    have fits : (render (dir ++ [component pending])).length < vfsPathMax := by omega
    -- The tree holds what the code is told, which goes on, ends here or follows a link.
    cases told : lstat (render (dir ++ [component pending])) with
    | error error =>
      simp only [told] at walked
      split at walked
      · rename_i mount
        have entry : tree lstat readlink mounts (dir ++ [component pending]) = .dir := by
          simp [tree, told, mount.1, ← below, mount.2.2]
        rw [entry]
        exact ih enough start' longer fits (dirs.append entry) walked
      · split at walked
        · rename_i missing
          rw [missing.2.1, parts_nil, ← Except.ok.inj walked]
          cases mount : mountBelow mounts (dir ++ [component pending])
          · simpa [tree, told, missing.1, mount, missing.2.2] using found_render longer fits
          · simpa [tree, told, missing.1, mount, walkParts] using found_render longer fits
        · cases walked
    | ok mode =>
      simp only [told] at walked
      split at walked
      · rename_i link
        cases read : readlink (render (dir ++ [component pending])) with
        | error error => simp [read, bind, Except.bind] at walked
        | ok target =>
          have entry : tree lstat readlink mounts (dir ++ [component pending]) =
              .link (some (target.head? == some '/', parts target)) := by simp [tree, told, link.1, read]
          have onward : ¬(parts (afterComponent pending) = [] ∧ followFinal = false) := by
            rintro ⟨last, stays⟩
            rcases link.2 with more | follows
            · exact more ((parts_eq_nil start').mp last)
            · rw [stays] at follows
              cases follows
          rw [entry]
          simp only
          rw [if_neg onward, Option.bind_some]
          cases restarted : restart with
          | error error => simp [read, restarted, bind, Except.bind] at walked
          | ok walkAgain =>
            cases joined : vfsJoinSymlinkTarget (render (dir ++ [component pending])) target (afterComponent pending) vfsPathMax with
            | error error => simp [read, restarted, joined, bind, Except.bind] at walked
            | ok merged =>
              have answered : walkAgain merged = .ok result := by
                simpa [read, restarted, joined, bind, Except.bind] using walked
              have found := behind walkAgain restarted merged result answered
              have components : parts merged = (if target.head? = some '/' then [] else dir).map part ++
                  (parts target ++ parts (afterComponent pending)) := by
                rw [parts, segments_vfsJoinSymlinkTarget longer.plain joined, List.map_append, List.map_append,
                  List.append_assoc]
                rfl
              rw [components] at found
              by_cases absolute : target.head? = some '/'
              · simpa [absolute] using found
              · -- The code walks over the directory of the link again.
                rw [if_neg absolute, map_part proper] at found
                simpa [absolute] using resumes dir _ result dirs found
      · split at walked
        · cases walked
        rename_i stays searchable
        by_cases last : afterComponent pending = []
        · rw [last, walk_nil] at walked
          rw [last, parts_nil, ← Except.ok.inj walked]
          cases link : isLink mode
          · cases directory : isDir mode
            · simpa [tree, told, link, directory] using found_render longer fits
            · simpa [tree, told, link, directory, walkParts] using found_render longer fits
          · have kept : followFinal = false := by simpa [link, last] using stays
            cases read : readlink (render (dir ++ [component pending])) <;>
              simpa [tree, told, link, read, kept] using found_render longer fits
        · have link : isLink mode = false := by simpa [last] using stays
          have directory : isDir mode = true := by simpa [last] using searchable
          have entry : tree lstat readlink mounts (dir ++ [component pending]) = .dir := by
            simp [tree, told, link, directory]
          rw [entry]
          exact ih enough start' longer fits (dirs.append entry) walked

theorem walkLinks_resumes (links : Nat) {front : List CString} {ahead : List (Component CString)} {result : CString}
    (dirs : Dirs (tree lstat readlink mounts) front)
    (found : Found (walkLinks (tree lstat readlink mounts) followFinal allowMissingFinal links [] (front.map .name ++ ahead)) result) :
    Found (walkLinks (tree lstat readlink mounts) followFinal allowMissingFinal links front ahead) result :=
  walkLinks_dirs links ahead dirs ▸ found

theorem walkFrom_sound {links : Nat} {result : CString}
    (walked : walkFrom lstat readlink mounts followFinal allowMissingFinal links path = .ok result) :
    Found (walkLinks (tree lstat readlink mounts) followFinal allowMissingFinal links [] (parts path)) result := by
  have enough (path : CString) : (skipSlashes path).length ≤ path.length := (List.dropWhile_sublist _).length_le
  induction links generalizing path result with
  | zero =>
    rw [walkLinks, ← parts_skipSlashes]
    refine walk_sound ?_ ?_ (enough path) (skipSlashes_head path) (by simp [Proper]) (by decide) Dirs.nil walked
    · intro walkAgain restarted
      cases restarted
    · rintro front ahead result dirs ⟨names, _, _, _, walked⟩
      cases walked
  | succ links ih =>
    rw [walkLinks, ← parts_skipSlashes]
    refine walk_sound ?_ ?_ (enough path) (skipSlashes_head path) (by simp [Proper]) (by decide) Dirs.nil walked
    · intro walkAgain restarted merged result answered
      cases restarted
      exact ih answered
    · intro front ahead result dirs found
      exact walkLinks_resumes links dirs found

theorem vfsResolvePathFlags_sound {result : CString}
    (resolved : vfsResolvePathFlags lstat readlink mounts followFinal allowMissingFinal path = .ok result) :
    Found (walkLinks (tree lstat readlink mounts) followFinal allowMissingFinal vfsSymlinkMax [] (parts path)) result := by
  unfold vfsResolvePathFlags at resolved
  split_ifs at resolved
  exact walkFrom_sound resolved

theorem tree_dir (entry : tree lstat readlink mounts names = .dir) :
    (lstat (render names) = .error .enoent ∧ mountBelow mounts names = true) ∨
      ∃ mode, lstat (render names) = .ok mode ∧ isLink mode = false ∧ isDir mode = true := by
  unfold tree at entry
  cases told : lstat (render names) with
  | error error =>
    simp only [told] at entry
    split_ifs at entry with missing mount
    exact .inl ⟨congrArg _ missing, mount⟩
  | ok mode =>
    simp only [told] at entry
    split at entry
    · split at entry <;> cases entry
    · rename_i other
      split_ifs at entry with directory
      exact .inr ⟨mode, rfl, by simpa using other, directory⟩

theorem skipSlashes_slashed {name : CString} {rest : List CString} (some_char : name ≠ []) (clear : '/' ∉ name) :
    skipSlashes (slashed (name :: rest)) = name ++ slashed rest := by
  obtain ⟨c, name, rfl⟩ := List.exists_cons_of_ne_nil some_char
  have other : c ≠ '/' := fun same => clear (same ▸ List.mem_cons_self)
  simp [skipSlashes, other]

theorem walk_resolved {rest : List CString} {left : Nat} {mode : UInt32} (proper : Proper (names ++ rest))
    (arrived : ∀ front, front <+: names ++ rest → front ≠ [] → front ≠ names ++ rest → tree lstat readlink mounts front = .dir)
    (present : lstat (render (names ++ rest)) = .ok mode) (followed : followFinal = true → isLink mode = false)
    (fits : (render (names ++ rest)).length < vfsPathMax) (enough : (slashed rest).length ≤ left) :
    walk lstat readlink mounts followFinal allowMissingFinal restart left (skipSlashes (slashed rest)) (render names) =
      .ok (render (names ++ rest)) := by
  induction rest generalizing names left with
  | nil =>
    rw [slashed_nil, skipSlashes, List.dropWhile_nil, walk_nil, List.append_nil]
  | cons name rest ih =>
    have longer : names ++ name :: rest = names ++ [name] ++ rest := by simp
    obtain ⟨some_char, clear, same, up⟩ := proper name (by simp)
    have before : Proper (names ++ [name]) := fun other mem => proper other (longer ▸ List.mem_append_left _ mem)
    cases left with
    | zero => simp at enough
    | succ left =>
      have enough : (slashed rest).length ≤ left := by
        rw [slashed_cons, List.length_cons, List.length_append] at enough
        omega
      have short : ¬vfsPathMax < (render (names ++ [name])).length + 1 := by
        have part : (render (names ++ [name])).length ≤ (render (names ++ name :: rest)).length := by
          have text : slashed (names ++ [name] ++ rest) = slashed (names ++ [name]) ++ slashed rest := slashed_append
          rw [render_of_ne (by simp), render_of_ne (by simp), longer, text, List.length_append]
          omega
        omega
      rw [longer] at proper arrived present fits
      have next := ih proper arrived present fits enough
      rw [skipSlashes_slashed some_char clear, walk, if_neg (by simp [some_char]), component_append clear (slashed_stops rest),
        afterComponent_append clear (slashed_stops rest), if_neg same, if_neg up,
        vfsPathAppendComponent_render (fun other mem => before.plain other (List.mem_append_left _ mem)) some_char (by decide),
        if_neg short, longer]
      cases rest with
      | nil =>
        rw [List.append_nil] at present
        simp only [present]
        have stays : ¬(isLink mode = true ∧ (skipSlashes (slashed []) ≠ [] ∨ followFinal = true)) := by
          rintro ⟨link, more | follows⟩
          · exact more rfl
          · rw [followed follows] at link
            cases link
        rw [if_neg stays, if_neg fun more => more.1 rfl]
        exact next
      | cons other rest =>
        have more : skipSlashes (slashed (other :: rest)) ≠ [] := by
          obtain ⟨some_char, clear, _, _⟩ := proper other (by simp)
          rw [skipSlashes_slashed some_char clear]
          simp [some_char]
        rcases tree_dir (arrived (names ++ [name]) (List.prefix_append _ _) (by simp) (by simp)) with
          ⟨missing, mount⟩ | ⟨kind, told, link, directory⟩
        · rw [← vfsHasMountDescendant_render mounts (by simp) (render_longer before (by simp))] at mount
          simp only [missing, more, mount, ne_eq, not_false_eq_true, and_self, if_true]
          exact next
        · simp only [told, link, directory, Bool.false_eq_true, Bool.true_eq_false, false_and, and_false, if_false]
          exact next

/-- What is found under names is a link. -/
def LinkAt (lstat : CString → Except Errno UInt32) (names : List CString) : Prop :=
  ∃ mode, lstat (render names) = .ok mode ∧ isLink mode = true

theorem LinkAt.not_dir (link : LinkAt lstat names) : tree lstat readlink mounts names ≠ .dir := by
  intro entry
  obtain ⟨mode, told, link⟩ := link
  rcases tree_dir entry with ⟨missing, _⟩ | ⟨kind, told', other, _⟩
  · rw [told] at missing
    cases missing
  · rw [told] at told'
    cases told'
    rw [link] at other
    cases other

theorem LinkAt.entry (link : LinkAt lstat names) : ∃ target, tree lstat readlink mounts names = .link target := by
  obtain ⟨mode, told, link⟩ := link
  simp only [tree, told, link, if_true]
  split
  · exact ⟨_, rfl⟩
  · exact ⟨_, rfl⟩

theorem vfsResolvePathFlags_again {result : CString} {mode : UInt32}
    (resolved : vfsResolvePathFlags lstat readlink mounts followFinal allowMissingFinal path = .ok result)
    (present : lstat result = .ok mode) :
    vfsResolvePathFlags lstat readlink mounts followFinal allowMissingFinal result = .ok result := by
  obtain ⟨names, proper, rfl, fits, walked⟩ := vfsResolvePathFlags_sound resolved
  have arrived := walkLinks_arrived Dirs.nil walked
  rw [vfsResolvePathFlags, if_neg (by simp [render_head]), if_neg (by omega)]
  by_cases root : names = []
  · subst root
    rfl
  have followed : followFinal = true → isLink mode = false := by
    intro follows
    by_contra link
    obtain ⟨target, entry⟩ := LinkAt.entry ⟨mode, present, by simpa using link⟩
    exact arrived.followed follows root target entry
  have again (restart) (left) (enough : (slashed names).length ≤ left) :
      walk lstat readlink mounts followFinal allowMissingFinal restart left (skipSlashes (slashed names)) (render []) =
        .ok (render names) :=
    walk_resolved proper arrived.dirs present followed fits enough
  rw [← render_of_ne root] at again
  exact again _ _ (Nat.le_refl _)

end

end Enlil.Vfs
